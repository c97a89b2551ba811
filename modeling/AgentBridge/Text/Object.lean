import AgentBridge.Text.PyString

/-!
# Flat JSON objects

`json.dumps` writes an object whose values are strings and numbers as its members between braces.
The text determines the values: a string literal ends at its closing quote, and a number at the
comma or brace that follows it.

* `quoted`, `intText` : a string literal and an integer.
* `Token` : the text of a value.
* `object` : the text of an object, with or without blanks after the separators.
* `object_injective` : **objects with the same keys and the same text have the same values**.
* `length_object` : the length of an object is the one of its names and values, and a constant for
  each member.
-/

namespace JsonText

open AgentBridge List

-- A bounded quantifier over characters is evaluated as a test of the list: `Char` is finite, and
-- its own quantifier would try every character.
theorem forall_mem_of_all {p : Char → Prop} [DecidablePred p] {l : List Char}
    (h : (l.all fun c => decide (p c)) = true) : ∀ c ∈ l, p c := by
  intro c hc
  exact of_decide_eq_true (all_eq_true.mp h c hc)

/-! ### Values -/

/-- A string literal. -/
def quoted (s : PyString) : List Char := '"' :: (escape s.codes ++ ['"'])

/-- An integer. -/
def intText : ℤ → List Char
  | .ofNat n => Nat.toDigits 10 n
  | .negSucc n => '-' :: Nat.toDigits 10 (n + 1)

/-- The characters that end a value. -/
def isEnd (c : Char) : Bool := c = ',' || c = '\x7d' || c = ']'

/-- The text of a value: a string, or something without quotes and separators. -/
inductive Token : List Char → Prop
  | text (s : PyString) : Token (quoted s)
  | number {v : List Char} (h : ∀ c ∈ v, isEnd c = false ∧ c ≠ '"') : Token v

theorem quoted_norm (s : PyString) : quoted s.norm = quoted s := by
  rw [quoted, quoted, PyString.escape_norm]

variable {s : PyString} {r r' v : List Char}

/-- A string literal is read up to its closing quote. -/
theorem quoted_append_inj {t : PyString} (h : quoted s ++ r = quoted t ++ r') :
    s.norm = t.norm ∧ r = r' := by
  have hs := PyString.readString_escape s r
  have ht := PyString.readString_escape t r'
  simp only [quoted, cons_append, append_assoc, nil_append, List.cons.injEq,
    true_and] at h
  rw [h, ht] at hs
  injection hs with hpair
  exact ⟨(Prod.ext_iff.mp hpair).1.symm, (Prod.ext_iff.mp hpair).2.symm⟩

theorem norm_eq_of_quoted_eq {t : PyString} (h : quoted s = quoted t) : s.norm = t.norm :=
  (quoted_append_inj (congrArg (· ++ []) h)).1

theorem digit_ne {c : Char} (h : c.isDigit = true) : isEnd c = false ∧ c ≠ '"' ∧ c ≠ '-' := by
  have hne : ∀ d : Char, d.isDigit = false → c ≠ d := by
    rintro d hd rfl
    rw [hd] at h
    cases h
  refine ⟨?_, hne '"' (by decide), hne '-' (by decide)⟩
  rw [isEnd, decide_eq_false (hne ',' (by decide)), decide_eq_false (hne '\x7d' (by decide)),
    decide_eq_false (hne ']' (by decide))]
  rfl

theorem isDigit_of_mem_toDigits {n : ℕ} {c : Char} (h : c ∈ Nat.toDigits 10 n) :
    c.isDigit = true :=
  Nat.isDigit_of_mem_toDigits (by omega) (by omega) h

theorem toDigits_injective {m n : ℕ} (h : Nat.toDigits 10 m = Nat.toDigits 10 n) : m = n := by
  have hread : ∀ k, readNat (Nat.toDigits 10 k ++ []) = some (k, []) := fun k =>
    readNat_toDigits k (by simp)
  have hm := hread m
  rw [h, hread n] at hm
  injection hm with hpair
  exact (Prod.ext_iff.mp hpair).1.symm

theorem mem_intText {n : ℤ} {c : Char} (h : c ∈ intText n) : c.isDigit = true ∨ c = '-' := by
  cases n with
  | ofNat k => exact .inl (isDigit_of_mem_toDigits h)
  | negSucc k => exact (mem_cons.mp h).symm.imp_left isDigit_of_mem_toDigits

theorem intText_word (n : ℤ) : ∀ c ∈ intText n, isEnd c = false ∧ c ≠ '"' := by
  intro c hc
  rcases mem_intText hc with hdigit | rfl
  · exact ⟨(digit_ne hdigit).1, (digit_ne hdigit).2.1⟩
  · decide

theorem Token.intText (n : ℤ) : Token (intText n) := .number (intText_word n)

theorem intText_injective {m n : ℤ} (h : intText m = intText n) : m = n := by
  -- a sign is not a digit
  have hsign : ∀ j k, Nat.toDigits 10 j ≠ '-' :: Nat.toDigits 10 k := by
    intro j k heq
    have hmem : '-' ∈ Nat.toDigits 10 j := by
      rw [heq]
      exact mem_cons_self
    exact absurd (isDigit_of_mem_toDigits hmem) (by decide)
  cases m with
  | ofNat j =>
    cases n with
    | ofNat k => exact congrArg Int.ofNat (toDigits_injective h)
    | negSucc k => exact absurd h (hsign j (k + 1))
  | negSucc j =>
    cases n with
    | ofNat k => exact absurd h.symm (hsign k (j + 1))
    | negSucc k =>
      have hjk : j + 1 = k + 1 := toDigits_injective (List.cons.inj h).2
      exact congrArg Int.negSucc (Nat.succ_injective hjk)

/-- A value without separators is read up to the first separator. -/
theorem number_append_inj {v' : List Char} (hv : ∀ c ∈ v, isEnd c = false)
    (hv' : ∀ c ∈ v', isEnd c = false) (hr : ∃ c ∈ r.head?, isEnd c = true)
    (hr' : ∃ c ∈ r'.head?, isEnd c = true) (h : v ++ r = v' ++ r') : v = v' ∧ r = r' := by
  -- the longer of the two would contain the separator that ends the other
  have hnil : ∀ {a u t w : List Char}, (∀ c ∈ u, isEnd c = false) → (∃ c ∈ t.head?, isEnd c = true) →
      u = w ++ a → t = a ++ r' ∨ t = a ++ r → a = [] := by
    rintro a u t w hu ⟨c, hc, hend⟩ rfl ht
    cases a with
    | nil => rfl
    | cons b a =>
      have hb : c = b := by rcases ht with rfl | rfl <;> simpa using hc.symm
      rw [hb, hu b (by simp)] at hend
      cases hend
  rcases append_eq_append_iff.mp h with ⟨a, rfl, rfl⟩ | ⟨a, rfl, rfl⟩
  · cases hnil hv' hr rfl (.inl rfl)
    exact ⟨(append_nil v).symm, rfl⟩
  · cases hnil hv hr' rfl (.inr rfl)
    exact ⟨append_nil v', rfl⟩

theorem quoted_append_ne (hv : ∀ c ∈ v, c ≠ '"') (hr' : ∃ c ∈ r'.head?, isEnd c = true) :
    quoted s ++ r ≠ v ++ r' := by
  intro h
  cases v with
  | nil =>
    obtain ⟨c, hc, hend⟩ := hr'
    rw [nil_append] at h
    rw [← h] at hc
    cases hc
    revert hend
    decide
  | cons c v => exact hv c mem_cons_self (List.cons.inj h).1.symm

/-- What follows a value tells where the value ends. -/
theorem Token.append_inj {v' : List Char} (hv : Token v) (hv' : Token v')
    (hr : ∃ c ∈ r.head?, isEnd c = true) (hr' : ∃ c ∈ r'.head?, isEnd c = true)
    (h : v ++ r = v' ++ r') : v = v' ∧ r = r' := by
  cases hv with
  | text s =>
    cases hv' with
    | text t =>
      obtain ⟨hnorm, hrest⟩ := quoted_append_inj h
      exact ⟨by rw [← quoted_norm s, hnorm, quoted_norm], hrest⟩
    | number hnum => exact absurd h (quoted_append_ne (fun c hc => (hnum c hc).2) hr')
  | number hnum =>
    cases hv' with
    | text t => exact absurd h.symm (quoted_append_ne (fun c hc => (hnum c hc).2) hr)
    | number hnum' =>
      exact number_append_inj (fun c hc => (hnum c hc).1) (fun c hc => (hnum' c hc).1) hr hr' h

/-! ### Objects -/

/-- A key and what stands before its value; `gap` is the blank after a separator. -/
def key (gap : List Char) (name : String) : List Char :=
  '"' :: (name.toList ++ '"' :: ':' :: gap)

/-- The members after the first. -/
def members (gap : List Char) : List (String × List Char) → List Char
  | [] => ['\x7d']
  | (name, v) :: rest => ',' :: (gap ++ (key gap name ++ (v ++ members gap rest)))

/-- The text of an object. -/
def object (gap : List Char) : List (String × List Char) → List Char
  | [] => ['\x7b', '\x7d']
  | (name, v) :: rest => '\x7b' :: (key gap name ++ (v ++ members gap rest))

theorem members_head (gap : List Char) (kvs : List (String × List Char)) :
    ∃ c ∈ (members gap kvs).head?, isEnd c = true := by
  cases kvs with
  | nil => exact ⟨'\x7d', rfl, by decide⟩
  | cons kv kvs => exact ⟨',', rfl, by decide⟩

variable {kvs : List (String × List Char)}

theorem members_injective {gap : List Char} {kvs' : List (String × List Char)}
    (hkeys : kvs.map Prod.fst = kvs'.map Prod.fst) (htok : ∀ kv ∈ kvs, Token kv.2)
    (htok' : ∀ kv ∈ kvs', Token kv.2) (h : members gap kvs = members gap kvs') : kvs = kvs' := by
  induction kvs generalizing kvs' with
  | nil => exact (map_eq_nil_iff.mp hkeys.symm).symm
  | cons kv kvs ih =>
    cases kvs' with
    | nil => cases hkeys
    | cons kv' kvs' =>
      obtain ⟨name, v⟩ := kv
      obtain ⟨name', v'⟩ := kv'
      obtain ⟨rfl, hkeys'⟩ := List.cons.inj hkeys
      have htext : v ++ members gap kvs = v' ++ members gap kvs' :=
        append_cancel_left (append_cancel_left (List.cons.inj h).2)
      obtain ⟨rfl, hrest⟩ := (htok _ mem_cons_self).append_inj (htok' _ mem_cons_self)
        (members_head gap kvs) (members_head gap kvs') htext
      rw [ih hkeys' (fun kv hkv => htok kv (mem_cons_of_mem _ hkv))
        (fun kv hkv => htok' kv (mem_cons_of_mem _ hkv)) hrest]

/-- **Objects with the same keys and the same text have the same values.** -/
theorem object_injective {gap : List Char} {kvs' : List (String × List Char)}
    (hkeys : kvs.map Prod.fst = kvs'.map Prod.fst) (htok : ∀ kv ∈ kvs, Token kv.2)
    (htok' : ∀ kv ∈ kvs', Token kv.2) (h : object gap kvs = object gap kvs') : kvs = kvs' := by
  have hmembers : members gap kvs = members gap kvs' := by
    cases kvs with
    | nil => rw [map_eq_nil_iff.mp hkeys.symm]
    | cons kv kvs =>
      cases kvs' with
      | nil => cases hkeys
      | cons kv' kvs' => exact congrArg (fun t => ',' :: (gap ++ t)) (List.cons.inj h).2
  exact members_injective hkeys htok htok' hmembers

/-! ### ASCII -/

theorem quoted_ascii (s : PyString) : ∀ c ∈ quoted s, c.toNat < 128 := by
  simp only [quoted, forall_mem_cons, forall_mem_append]
  exact ⟨by decide, escape_ascii _, by decide, nofun⟩

theorem intText_ascii (n : ℤ) : ∀ c ∈ intText n, c.toNat < 128 := by
  have hdigits : ∀ k, ∀ c ∈ Nat.toDigits 10 k, c.toNat < 128 := by
    intro k c hc
    have hdigit := isDigit_of_mem_toDigits hc
    have hle : c.val ≤ '9'.val := by
      simp only [Char.isDigit, Bool.and_eq_true, decide_eq_true_eq] at hdigit
      exact hdigit.2
    have : c.toNat ≤ 57 := hle
    omega
  cases n with
  | ofNat k => exact hdigits k
  | negSucc k => exact forall_mem_cons.mpr ⟨by decide, hdigits (k + 1)⟩

theorem members_ascii
    (h : ∀ kv ∈ kvs, (∀ c ∈ kv.1.toList, c.toNat < 128) ∧ ∀ c ∈ kv.2, c.toNat < 128) :
    ∀ c ∈ members [] kvs, c.toNat < 128 := by
  induction kvs with
  | nil => exact forall_mem_singleton.mpr (by decide)
  | cons kv kvs ih =>
    obtain ⟨hname, hvalue⟩ := h kv mem_cons_self
    have hrest := ih fun kv hkv => h kv (mem_cons_of_mem _ hkv)
    simp only [members, key, nil_append, forall_mem_cons, forall_mem_append]
    exact ⟨by decide, ⟨by decide, hname, by decide, by decide, nofun⟩, hvalue, hrest⟩

theorem object_ascii
    (h : ∀ kv ∈ kvs, (∀ c ∈ kv.1.toList, c.toNat < 128) ∧ ∀ c ∈ kv.2, c.toNat < 128) :
    ∀ c ∈ object [] kvs, c.toNat < 128 := by
  cases kvs with
  | nil => exact forall_mem_cons.mpr ⟨by decide, forall_mem_singleton.mpr (by decide)⟩
  | cons kv kvs =>
    have hmembers := members_ascii h
    simp only [members, nil_append, forall_mem_cons] at hmembers
    exact forall_mem_cons.mpr ⟨by decide, hmembers.2⟩

/-! ### Size -/

theorem length_quoted (s : PyString) : (quoted s).length = (escape s.codes).length + 2 := by
  simp [quoted]

theorem length_quoted_le (s : PyString) : (quoted s).length ≤ 12 * s.codes.length + 2 := by
  have := length_escape_le s.codes
  rw [length_quoted]
  omega

/-- Printable characters stand for themselves. -/
theorem length_quoted_of_plain (h : ∀ c ∈ s.codes, 0x20 ≤ c ∧ c ≤ 0x7e ∧ c ≠ 0x22 ∧ c ≠ 0x5c) :
    (quoted s).length = s.codes.length + 2 := by
  rw [length_quoted, length_escape_of_plain h]

/-- The characters that do not depend on the values: names, quotes, colons and separators. -/
def frame (names : List String) : ℕ := (names.map fun name => name.length + 4).sum + 1

/-- The characters of the values. -/
def valueSize (kvs : List (String × List Char)) : ℕ := (kvs.map fun kv => kv.2.length).sum

@[simp] theorem valueSize_nil : valueSize [] = 0 := rfl

@[simp] theorem valueSize_cons (kv : String × List Char) (kvs : List (String × List Char)) :
    valueSize (kv :: kvs) = kv.2.length + valueSize kvs := rfl

/-- Bounds of the values, one by one. -/
theorem valueSize_le {ns : List ℕ} (h : List.Forall₂ (fun kv n => kv.2.length ≤ n) kvs ns) :
    valueSize kvs ≤ ns.sum := by
  induction h with
  | nil => exact le_rfl
  | cons hkv _ ih =>
    rw [valueSize_cons, sum_cons]
    exact Nat.add_le_add hkv ih

theorem length_members (kvs : List (String × List Char)) :
    (members [] kvs).length = frame (kvs.map Prod.fst) + valueSize kvs := by
  induction kvs with
  | nil => rfl
  | cons kv kvs ih =>
    simp only [frame] at ih
    simp only [members, key, nil_append, length_cons, length_append,
      length_nil, String.length_toList, ih, valueSize_cons, frame, map_cons,
      sum_cons]
    omega

theorem length_object (h : kvs ≠ []) :
    (object [] kvs).length = frame (kvs.map Prod.fst) + valueSize kvs := by
  cases kvs with
  | nil => exact absurd rfl h
  | cons kv kvs => exact length_members (kv :: kvs)

end JsonText
