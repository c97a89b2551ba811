import AgentBridge.Protocols.Value
import AgentBridge.Text.Object
import Mathlib.Data.List.Sort
import Mathlib.Data.List.Perm.Subperm
import Mathlib.Algebra.Order.Field.Rat
import Mathlib.Data.Nat.Cast.Field

/-!
# Equal values and equal texts

Two values are compared with `==`, and written with `json.dumps`. These are different notions of
sameness: `True`, `1` and `1.0` are equal and are written as three texts, and so are the two zeros.
Where no two equal numbers of different kinds meet, equal values are written in the same way.

* `dumps_eq_of_eq` : **equal values that are alike have the same text**.
* `alike_of_dumps_eq` : **equal values with the same text are alike**.
-/

namespace AgentBridge.Protocols.Value

open JsonText List

/-! ### Numbers -/

/-- The exponent of a float. -/
def exponent (bits : BitVec 64) : ℕ := bits.toNat / 2 ^ 52 % 2 ^ 11

/-- The significand of a float, with its hidden bit. -/
def significand (bits : BitVec 64) : ℕ :=
  bits.toNat % 2 ^ 52 + if exponent bits = 0 then 0 else 2 ^ 52

/-- `math.isfinite`. -/
def isFiniteFloat (bits : BitVec 64) : Bool := exponent bits ≠ 2047

/-- `math.isnan`. -/
def isNan (bits : BitVec 64) : Bool := exponent bits = 2047 && bits.toNat % 2 ^ 52 ≠ 0

/-- The integer that a float is, if it is one: the significand times a power of two. -/
def floatInt? (bits : BitVec 64) : Option ℤ :=
  let scaled := significand bits * 2 ^ max 1 (exponent bits)
  if isFiniteFloat bits && scaled % 2 ^ 1075 = 0 then
    some (if bits.toNat < 2 ^ 63 then (scaled / 2 ^ 1075 : ℕ) else -(scaled / 2 ^ 1075 : ℕ))
  else none

/-- The integer that a number is. -/
def int? : Value → Option ℤ
  | .bool b => some (if b then 1 else 0)
  | .int n => some n
  | .float bits => floatInt? bits
  | _ => none

def isNumber : Value → Bool
  | .bool _ | .int _ | .float _ => true
  | _ => false

/-- `==` of two floats: no NaN is equal to anything, and the two zeros are equal. -/
def eqFloat (x y : BitVec 64) : Bool :=
  !isNan x && (x = y || x.toNat % 2 ^ 63 = 0 && y.toNat % 2 ^ 63 = 0)

/-- `==` of two values that are not both lists or both objects. An integer and a float are
compared exactly. -/
def eqLeaf : Value → Value → Bool
  | .null, .null => true
  | .str s, .str t => s = t
  | .float x, .float y => eqFloat x y
  | a, b => (int? a).any fun n => int? b = some n

mutual

/-- `a == b`. -/
def eq : Value → Value → Bool
  | .list xs, .list ys => eqList xs ys
  | .dict xs, .dict ys => xs.length = ys.length && eqItems xs ys
  | a, b => eqLeaf a b

def eqList : List Value → List Value → Bool
  | [], [] => true
  | x :: xs, y :: ys => eq x y && eqList xs ys
  | _, _ => false

/-- Every entry has an equal one under its key. -/
def eqItems : List (PyString × Value) → List (PyString × Value) → Bool
  | [], _ => true
  | (key, v) :: xs, ys => (match ys.lookup key with
    | some w => eq v w
    | none => false) && eqItems xs ys

end

/-! ### Kinds of numbers -/

/-- Numbers of one kind; zeros of one sign. -/
def sameKind : Value → Value → Bool
  | .float x, .float y => !eqFloat x y || x = y
  | a, b => !(isNumber a && isNumber b) || a.typeName = b.typeName || !eqLeaf a b

mutual

/-- Equal numbers at the same place are of one kind. -/
def alike : Value → Value → Bool
  | .list xs, .list ys => alikeList xs ys
  | .dict xs, .dict ys => alikeItems xs ys
  | a, b => sameKind a b

def alikeList : List Value → List Value → Bool
  | x :: xs, y :: ys => alike x y && alikeList xs ys
  | _, _ => true

def alikeItems : List (PyString × Value) → List (PyString × Value) → Bool
  | [], _ => true
  | (key, v) :: xs, ys => (match ys.lookup key with
    | some w => alike v w
    | none => true) && alikeItems xs ys

end

/-! ### Texts -/

section Dumps

variable (floatText : BitVec 64 → List Char)

/-- The members of an object, in the order of their keys. -/
def sortItems {α : Type} (items : List (PyString × α)) : List (PyString × α) :=
  items.insertionSort fun a b => a.1.codes ≤ b.1.codes

/-- The text of an object. -/
def itemsText (items : List (PyString × List Char)) : List Char :=
  '\x7b' :: ([','].intercalate ((sortItems items).map fun item =>
    quoted item.1 ++ ':' :: item.2) ++ ['\x7d'])

mutual

/-- `json.dumps(value, sort_keys=True, separators=(",", ":"))`. -/
def dumps : Value → List Char
  | .null => "null".toList
  | .bool b => (if b then "true" else "false").toList
  | .int n => intText n
  | .float bits => floatText bits
  | .str s => quoted s
  | .list items => '[' :: ([','].intercalate (dumpsList items) ++ [']'])
  | .dict items => itemsText (dumpsItems items)

def dumpsList : List Value → List (List Char)
  | [] => []
  | v :: vs => dumps v :: dumpsList vs

def dumpsItems : List (PyString × Value) → List (PyString × List Char)
  | [] => []
  | (key, v) :: items => (key, dumps v) :: dumpsItems items

end

end Dumps

mutual

/-- `allow_nan=False` raises on any other value. -/
def isFinite : Value → Bool
  | .float bits => isFiniteFloat bits
  | .list items => isFiniteList items
  | .dict items => isFiniteItems items
  | _ => true

def isFiniteList : List Value → Bool
  | [] => true
  | v :: vs => isFinite v && isFiniteList vs

def isFiniteItems : List (PyString × Value) → Bool
  | [] => true
  | (_, v) :: items => isFinite v && isFiniteItems items

end

/-- The keys of every object are distinct. -/
inductive Unique : Value → Prop
  | null : Unique .null
  | bool (b : Bool) : Unique (.bool b)
  | int (n : ℤ) : Unique (.int n)
  | float (bits : BitVec 64) : Unique (.float bits)
  | str (s : PyString) : Unique (.str s)
  | list {items : List Value} (h : ∀ v ∈ items, Unique v) : Unique (.list items)
  | dict {items : List (PyString × Value)} (hkeys : (items.map Prod.fst).Nodup)
      (h : ∀ item ∈ items, Unique item.2) : Unique (.dict items)

section Lemmas

variable {floatText : BitVec 64 → List Char} {a b : Value}

theorem dumpsItems_eq_map (items : List (PyString × Value)) :
    dumpsItems floatText items = items.map fun item => (item.1, dumps floatText item.2) := by
  induction items with
  | nil => rw [dumpsItems, map_nil]
  | cons item items ih => rw [dumpsItems, ih, map_cons]

/-- Equal numbers of one kind are the same value, and so are other equal leaves. -/
theorem eq_of_eqLeaf (heq : eqLeaf a b = true) (hkind : sameKind a b = true) : a = b := by
  cases a <;> cases b <;> simp_all [eqLeaf, sameKind, isNumber, typeName, int?]
  case bool.bool b c =>
    cases b <;> cases c <;> first | rfl | cases heq

/-- Values that are not both lists or both objects are compared as they are. -/
theorem eq_of_isLeaf (hleaf : a.isList = false ∧ a.isDict = false) (heq : eq a b = true)
    (halike : alike a b = true) : a = b := by
  obtain ⟨hlist, hdict⟩ := hleaf
  cases a with
  | list items => cases hlist
  | dict items => cases hdict
  | null | bool | int | float | str =>
    simp only [eq, alike] at heq halike
    exact eq_of_eqLeaf heq halike

variable {xs ys : List (PyString × Value)}

theorem eqItems_iff : eqItems xs ys = true ↔
    ∀ item ∈ xs, ∃ w, ys.lookup item.1 = some w ∧ eq item.2 w = true := by
  induction xs with
  | nil => simp [eqItems]
  | cons item xs ih =>
    rw [eqItems, Bool.and_eq_true, ih, forall_mem_cons]
    refine and_congr_left fun _ => ?_
    cases ys.lookup item.1 <;> simp

theorem alikeItems_iff : alikeItems xs ys = true ↔
    ∀ item ∈ xs, ∀ w, ys.lookup item.1 = some w → alike item.2 w = true := by
  induction xs with
  | nil => simp [alikeItems]
  | cons item xs ih =>
    rw [alikeItems, Bool.and_eq_true, ih, forall_mem_cons]
    refine and_congr_left fun _ => ?_
    cases ys.lookup item.1 <;> simp

theorem mem_of_lookup {key : PyString} {v : Value} (h : xs.lookup key = some v) :
    (key, v) ∈ xs := by
  obtain ⟨l₁, l₂, rfl, -⟩ := lookup_eq_some_iff.mp h
  exact mem_append_right _ mem_cons_self

theorem sortItems_dumpsItems (items : List (PyString × Value)) :
    sortItems (dumpsItems floatText items) =
      (sortItems items).map fun item => (item.1, dumps floatText item.2) := by
  rw [dumpsItems_eq_map]
  refine (map_insertionSort (fun a b : PyString × Value => a.1.codes ≤ b.1.codes)
    (fun a b : PyString × List Char => a.1.codes ≤ b.1.codes) _ items ?_).symm
  exact fun _ _ _ _ => Iff.rfl

theorem mem_sortItems {item : PyString × Value} : item ∈ sortItems xs ↔ item ∈ xs :=
  (perm_insertionSort _ xs).mem_iff

theorem value_unique (hkeys : (ys.map Prod.fst).Nodup) {x y : PyString × Value} {w : Value}
    (hy : y ∈ ys) (hxy : x.1 = y.1) (h : ys.lookup x.1 = some w) : w = y.2 := by
  have hmem : (y.1, w) ∈ ys := mem_of_lookup (hxy ▸ h)
  exact congrArg Prod.snd (inj_on_of_nodup_map hkeys hmem hy rfl)

/-- Equal objects have the same keys. -/
theorem perm_keys (hkeys : (xs.map Prod.fst).Nodup) (hlength : xs.length = ys.length)
    (heq : eqItems xs ys = true) : (xs.map Prod.fst).Perm (ys.map Prod.fst) := by
  refine (subperm_of_subset hkeys fun key hkey => ?_).perm_of_length_le (by simp [hlength])
  obtain ⟨item, hitem, rfl⟩ := mem_map.mp hkey
  obtain ⟨w, hlookup, -⟩ := eqItems_iff.mp heq item hitem
  exact mem_map.mpr ⟨_, mem_of_lookup hlookup, rfl⟩

theorem forall₂_sortItems (h : (xs.map Prod.fst).Perm (ys.map Prod.fst)) :
    List.Forall₂ (fun x y : PyString × Value => x.1 = y.1) (sortItems xs) (sortItems ys) := by
  have hsorted : ∀ l : List (PyString × Value),
      ((sortItems l).map Prod.fst).Pairwise fun a b => a.codes ≤ b.codes :=
    fun l => pairwise_map.mpr (pairwise_insertionSort _ l)
  have hperm : ∀ l : List (PyString × Value), (sortItems l).Perm l := fun l =>
    perm_insertionSort _ l
  have hkeys : (sortItems xs).map Prod.fst = (sortItems ys).map Prod.fst := by
    refine List.Perm.eq_of_pairwise (fun a b _ _ hab hba => PyString.ext (le_antisymm hab hba))
      (hsorted xs) (hsorted ys) ?_
    exact ((hperm xs).map _).trans (h.trans ((hperm ys).map _).symm)
  rwa [← forall₂_eq_eq_eq, forall₂_map_left_iff, forall₂_map_right_iff] at hkeys

/-- Objects in which equal keys have values of the same text. -/
theorem itemsText_eq (h : (xs.map Prod.fst).Perm (ys.map Prod.fst))
    (hvalues : ∀ x ∈ xs, ∀ y ∈ ys, x.1 = y.1 → dumps floatText x.2 = dumps floatText y.2) :
    itemsText (dumpsItems floatText xs) = itemsText (dumpsItems floatText ys) := by
  suffices hmembers : sortItems (dumpsItems floatText xs) = sortItems (dumpsItems floatText ys) by
    rw [itemsText, itemsText, hmembers]
  rw [sortItems_dumpsItems, sortItems_dumpsItems, ← forall₂_eq_eq_eq,
    forall₂_map_left_iff, forall₂_map_right_iff]
  refine forall₂_iff_zip.mpr ⟨(forall₂_sortItems h).length_eq, fun {x y} hxy => ?_⟩
  have hkey := forall₂_zip (forall₂_sortItems h) hxy
  obtain ⟨hx, hy⟩ := of_mem_zip hxy
  rw [hkey, hvalues x (mem_sortItems.mp hx) y (mem_sortItems.mp hy) hkey]

/-- **Equal values that are alike have the same text**, whatever the order of their keys. -/
theorem dumps_eq_of_eq (hunique : Unique a) : ∀ b, eq a b = true → alike a b = true →
    dumps floatText a = dumps floatText b := by
  induction hunique with
  | null | bool | int | float | str =>
    intro b heq halike
    rw [eq_of_isLeaf ⟨rfl, rfl⟩ heq halike]
  | @list items hitems ih =>
    intro b heq halike
    clear hitems
    cases b with
    | null | bool | int | float | str | dict => cases heq
    | list items' =>
      rw [eq] at heq
      rw [alike] at halike
      rw [dumps, dumps]
      -- element by element
      suffices hlists : dumpsList floatText items = dumpsList floatText items' by rw [hlists]
      induction items generalizing items' with
      | nil =>
        cases items' with
        | nil => rfl
        | cons y ys => cases heq
      | cons x xs ihxs =>
        cases items' with
        | nil => cases heq
        | cons y ys =>
          rw [eqList, Bool.and_eq_true] at heq
          rw [alikeList, Bool.and_eq_true] at halike
          rw [dumpsList, dumpsList, ih x mem_cons_self y heq.1 halike.1,
            ihxs (fun v hv => ih v (mem_cons_of_mem _ hv)) ys heq.2 halike.2]
  | @dict items hkeys _ ih =>
    intro b heq halike
    cases b with
    | null | bool | int | float | str | list => cases heq
    | dict items' =>
      rw [eq, Bool.and_eq_true, decide_eq_true_eq] at heq
      rw [alike, alikeItems_iff] at halike
      rw [dumps, dumps]
      have hperm := perm_keys hkeys heq.1 heq.2
      refine itemsText_eq hperm fun x hx y hy hxy => ?_
      obtain ⟨w, hlookup, hw⟩ := eqItems_iff.mp heq.2 x hx
      have halike' := halike x hx w hlookup
      obtain rfl := value_unique (hperm.nodup_iff.mp hkeys) hy hxy hlookup
      exact ih x hx y.2 hw halike'

end Lemmas

/-! ### The same value -/

mutual

/-- The same JSON value: no text tells two NaN apart, and the order of the keys is free. -/
def same : Value → Value → Bool
  | .null, .null => true
  | .bool b, .bool c => b = c
  | .int m, .int n => m = n
  | .float x, .float y => x = y || isNan x && isNan y
  | .str s, .str t => s = t
  | .list xs, .list ys => sameList xs ys
  | .dict xs, .dict ys => xs.length = ys.length && sameItems xs ys
  | _, _ => false

def sameList : List Value → List Value → Bool
  | [], [] => true
  | x :: xs, y :: ys => same x y && sameList xs ys
  | _, _ => false

def sameItems : List (PyString × Value) → List (PyString × Value) → Bool
  | [], _ => true
  | (key, v) :: xs, ys => (match ys.lookup key with
    | some w => same v w
    | none => false) && sameItems xs ys

end

theorem sameItems_iff {xs ys : List (PyString × Value)} : sameItems xs ys = true ↔
    ∀ item ∈ xs, ∃ w, ys.lookup item.1 = some w ∧ same item.2 w = true := by
  induction xs with
  | nil => simp [sameItems]
  | cons item xs ih =>
    rw [sameItems, Bool.and_eq_true, ih, forall_mem_cons]
    refine and_congr_left fun _ => ?_
    cases ys.lookup item.1 <;> simp

variable {s : PyString} {v : Value}

theorem same_str (h : same (.str s) v = true) : v = .str s := by
  cases v with
  | str t =>
    have hst : s = t := of_decide_eq_true h
    rw [hst]
  | null | bool | int | float | list | dict => cases h

theorem eq_str (h : eq v (.str s) = true) : v = .str s := by
  cases v with
  | str t =>
    have hst : t = s := of_decide_eq_true h
    rw [hst]
  | null | bool | int | float | list | dict => simp [eq, eqLeaf, int?] at h

theorem str_eq (h : eq (.str s) v = true) : v = .str s := by
  cases v with
  | str t =>
    have hst : s = t := of_decide_eq_true h
    rw [hst]
  | null | bool | int | float | list | dict => simp [eq, eqLeaf, int?] at h

/-! ### Values of numbers -/

def floatValue? (bits : BitVec 64) : Option ℚ :=
  if isFiniteFloat bits then
    some ((if bits.toNat < 2 ^ 63 then 1 else -1) *
      ((significand bits * 2 ^ max 1 (exponent bits) : ℕ) : ℚ) / ((2 ^ 1075 : ℕ) : ℚ))
  else none

/-- The value of a number that is finite. -/
def number? : Value → Option ℚ
  | .bool b => some (if b then 1 else 0)
  | .int n => some n
  | .float bits => floatValue? bits
  | _ => none

section Numbers

variable {a b : Value} {q : ℚ}

theorem floatValue?_of_floatInt? {bits : BitVec 64} {n : ℤ} (h : floatInt? bits = some n) :
    floatValue? bits = some (n : ℚ) := by
  unfold floatInt? at h
  dsimp only at h
  split at h
  case isFalse => cases h
  case isTrue hcond =>
    rw [Bool.and_eq_true, decide_eq_true_eq] at hcond
    obtain ⟨hfinite, hdvd⟩ := hcond
    rw [floatValue?, if_pos hfinite]
    -- the quotient is exact
    have hpos : ((2 ^ 1075 : ℕ) : ℚ) ≠ 0 := by
      rw [Nat.cast_ne_zero]
      exact pow_ne_zero _ two_ne_zero
    rw [mul_div_assoc, ← Nat.cast_div (Nat.dvd_of_mod_eq_zero hdvd) hpos, Option.some.injEq]
    cases h
    split
    · rw [one_mul, Int.cast_natCast]
    · rw [neg_one_mul, Int.cast_neg, Int.cast_natCast]

theorem number?_of_int? {n : ℤ} (h : int? a = some n) : number? a = some (n : ℚ) := by
  cases a with
  | null | str | list | dict => cases h
  | bool b =>
    cases h
    cases b <;> rfl
  | int m =>
    cases h
    rfl
  | float bits => exact floatValue?_of_floatInt? h

variable {x : BitVec 64}

theorem floatValue?_of_zero (h : x.toNat % 2 ^ 63 = 0) : floatValue? x = some 0 := by
  have hexponent : exponent x = 0 := by
    rw [exponent]
    omega
  have hsignificand : significand x = 0 := by
    rw [significand, if_pos hexponent]
    omega
  rw [floatValue?, if_pos (by rw [isFiniteFloat, hexponent]; rfl), hsignificand, Nat.zero_mul,
    Nat.cast_zero, mul_zero, zero_div]

theorem floatValue?_of_eqFloat {y : BitVec 64} (h : eqFloat x y = true) :
    floatValue? x = floatValue? y := by
  rw [eqFloat, Bool.and_eq_true, Bool.or_eq_true, Bool.and_eq_true, decide_eq_true_eq,
    decide_eq_true_eq, decide_eq_true_eq] at h
  rcases h.2 with rfl | ⟨hx, hy⟩
  · rfl
  · rw [floatValue?_of_zero hx, floatValue?_of_zero hy]

theorem number?_of_eq (h : eq a b = true) (hb : number? b = some q) : number? a = some q := by
  have hints : ∀ a b : Value, ((int? a).any fun n => int? b = some n) = true →
      number? b = some q → number? a = some q := by
    intro a b hany hb
    obtain ⟨n, ha, hn⟩ := (Option.any_eq_true _ _).mp hany
    rw [number?_of_int? ha, ← hb, number?_of_int? (of_decide_eq_true hn)]
  cases b with
  | null | str | list | dict => cases hb
  | bool c | int n =>
    cases a with
    | null | str | list | dict => simp [eq, eqLeaf, int?] at h
    | bool | int | float => exact hints _ _ h hb
  | float y =>
    cases a with
    | null | str | list | dict => simp [eq, eqLeaf, int?] at h
    | bool | int => exact hints _ _ h hb
    | float x =>
      have hfloat : floatValue? x = floatValue? y := floatValue?_of_eqFloat h
      exact hfloat.trans hb

theorem not_isFiniteFloat_of_isNan (h : isNan x = true) : floatValue? x = none := by
  rw [isNan, Bool.and_eq_true, decide_eq_true_eq] at h
  rw [floatValue?, if_neg (by rw [isFiniteFloat, h.1]; decide)]

theorem number?_of_same (h : same a b = true) : number? a = number? b := by
  cases a <;> cases b <;> first | rfl | cases h | skip
  case bool.bool b c =>
    have hbc : b = c := of_decide_eq_true h
    rw [hbc]
  case int.int m n =>
    have hmn : m = n := of_decide_eq_true h
    rw [hmn]
  case float.float x y =>
    simp only [same, Bool.or_eq_true, decide_eq_true_eq, Bool.and_eq_true] at h
    rcases h with rfl | ⟨hx, hy⟩
    · rfl
    · show floatValue? x = floatValue? y
      rw [not_isFiniteFloat_of_isNan hx, not_isFiniteFloat_of_isNan hy]

end Numbers

/-! ### Values from texts -/

section Texts

variable {floatText : BitVec 64 → List Char} {a b : Value} {r r' : List Char}

/-- What `repr` writes for a float: neither an integer nor a literal, and the sign of a zero. -/
structure IsRepr (floatText : BitVec 64 → List Char) : Prop where
  word : ∀ x, ∀ c ∈ floatText x, isEnd c = false
  ne_int : ∀ x n, floatText x ≠ intText n
  ne_bool : ∀ x b, floatText x ≠ dumps floatText (.bool b)
  zero : ∀ x y, eqFloat x y = true → floatText x = floatText y → x = y

/-- The text begins with the end of a value. -/
def Stops (r : List Char) : Prop := ∃ c ∈ r.head?, isEnd c = true

/-- Equal numbers with the same text are of one kind. -/
theorem sameKind_of_dumps_eq (hf : IsRepr floatText) (heq : eqLeaf a b = true)
    (h : dumps floatText a = dumps floatText b) : sameKind a b = true := by
  have hbool : ∀ (b : Bool) (n : ℤ), int? (.bool b) = some n →
      dumps floatText (.bool b) ≠ dumps floatText (.int n) := by
    rintro b _ ⟨⟩
    rw [dumps, dumps]
    cases b <;> decide
  have hint : ∀ x n, dumps floatText (.float x) ≠ dumps floatText (.int n) := by
    intro x n
    rw [dumps, dumps]
    exact hf.ne_int x n
  have hlit : ∀ x b, dumps floatText (.float x) ≠ dumps floatText (.bool b) := by
    intro x b
    rw [dumps.eq_4]
    exact hf.ne_bool x b
  cases a <;> cases b <;> first | rfl | skip
  case bool.int b n =>
    have hn : int? (.int n) = int? (.bool b) := of_decide_eq_true heq
    exact absurd h (hbool b n hn.symm)
  case int.bool n b => exact absurd h.symm (hbool b n (of_decide_eq_true heq))
  case bool.float b x => exact absurd h.symm (hlit x b)
  case float.bool x b => exact absurd h (hlit x b)
  case int.float n x => exact absurd h.symm (hint x n)
  case float.int x n => exact absurd h (hint x n)
  case float.float x y =>
    rw [dumps, dumps] at h
    rw [sameKind, hf.zero x y heq h]
    simp

/-- The text of the value ends where it ends, and tells the kinds of its numbers. -/
def Determined (floatText : BitVec 64 → List Char) (a : Value) : Prop :=
  ∀ b r r', eq a b = true → Stops r → Stops r' →
    dumps floatText a ++ r = dumps floatText b ++ r' → alike a b = true ∧ r = r'

/-- Literals and numbers. -/
def isWord (v : Value) : Bool := v.isNumber || v.isNone

theorem word_dumps (hf : IsRepr floatText) (hword : a.isWord = true) :
    ∀ c ∈ dumps floatText a, isEnd c = false := by
  cases a with
  | null =>
    rw [dumps]
    exact forall_mem_of_all (by decide)
  | bool b =>
    rw [dumps]
    cases b <;> exact forall_mem_of_all (by decide)
  | int n =>
    rw [dumps]
    exact fun c hc => (intText_word n c hc).1
  | float x =>
    rw [dumps]
    exact hf.word x
  | str | list | dict => cases hword

theorem determined_word (hf : IsRepr floatText) (hword : a.isWord = true) :
    Determined floatText a := by
  intro b r r' heq hr hr' htext
  have hleaf : eq a b = eqLeaf a b ∧ alike a b = sameKind a b ∧ (eqLeaf a b = true → b.isWord) := by
    cases a <;> cases b <;> simp_all [isWord, isNumber, isNone, eq, eqLeaf, alike, int?]
  rw [hleaf.1] at heq
  obtain ⟨htexts, hrest⟩ := number_append_inj (word_dumps hf hword)
    (word_dumps hf (hleaf.2.2 heq)) hr hr' htext
  rw [hleaf.2.1]
  exact ⟨sameKind_of_dumps_eq hf heq htexts, hrest⟩

/-- Texts of members, joined by commas. -/
theorem forall₂_of_intercalate {α β : Type} {f : α → List Char} {g : β → List Char}
    {R S : α → β → Prop} {stop : Char} (hstop : isEnd stop = true) {xs : List α} {ys : List β}
    (h : List.Forall₂ R xs ys)
    (hstep : ∀ x ∈ xs, ∀ y ∈ ys, ∀ r r', R x y → Stops r → Stops r' → f x ++ r = g y ++ r' →
      S x y ∧ r = r')
    (htext : [','].intercalate (xs.map f) ++ stop :: r =
      [','].intercalate (ys.map g) ++ stop :: r') : List.Forall₂ S xs ys ∧ r = r' := by
  have hend : ∀ t, Stops (stop :: t) := fun t => ⟨stop, rfl, hstop⟩
  induction h with
  | nil => exact ⟨.nil, (List.cons.inj htext).2⟩
  | @cons x y xs ys hxy hrest ih =>
    have hhead := hstep x mem_cons_self y mem_cons_self
    cases hrest with
    | nil =>
      simp only [map_cons, map_nil, intercalate_singleton] at htext
      obtain ⟨hS, hr⟩ := hhead _ _ hxy (hend r) (hend r') htext
      exact ⟨.cons hS .nil, (List.cons.inj hr).2⟩
    | @cons x' y' xs ys hxy' hrest =>
      simp only [map_cons, intercalate_cons_cons, append_assoc,
        singleton_append] at htext
      obtain ⟨hS, hcomma⟩ := hhead _ _ hxy ⟨',', rfl, rfl⟩ ⟨',', rfl, rfl⟩ htext
      obtain ⟨hSs, hr⟩ := ih (fun x hx y hy => hstep x (mem_cons_of_mem _ hx) y
        (mem_cons_of_mem _ hy)) (List.cons.inj hcomma).2
      exact ⟨.cons hS hSs, hr⟩

theorem forall₂_of_eqList : ∀ {xs ys : List Value}, eqList xs ys = true →
    List.Forall₂ (fun x y => eq x y = true) xs ys
  | [], [], _ => .nil
  | [], _ :: _, h => by cases h
  | _ :: _, [], h => by cases h
  | x :: xs, y :: ys, h => by
    rw [eqList, Bool.and_eq_true] at h
    exact .cons h.1 (forall₂_of_eqList h.2)

theorem determined_list {items : List Value} (ih : ∀ v ∈ items, Determined floatText v) :
    Determined floatText (.list items) := by
  intro b r r' heq _ _ htext
  cases b with
  | null | bool | int | float | str | dict => cases heq
  | list items' =>
    have hmap : ∀ l, dumpsList floatText l = l.map (dumps floatText) := by
      intro l
      induction l with
      | nil => rw [dumpsList, map_nil]
      | cons v l ih => rw [dumpsList, ih, map_cons]
    rw [eq] at heq
    rw [dumps, dumps, hmap, hmap, cons_append, cons_append, append_assoc,
      append_assoc, List.cons.injEq] at htext
    obtain ⟨halike, hr⟩ := forall₂_of_intercalate (S := fun x y => alike x y = true) rfl
      (forall₂_of_eqList heq) (fun x hx y _ => ih x hx y) htext.2
    refine ⟨?_, hr⟩
    rw [alike]
    clear ih heq htext
    induction halike with
    | nil => rfl
    | cons hxy _ ih => rw [alikeList, hxy, ih, Bool.and_true]

theorem determined_dict (hkeys : (xs.map Prod.fst).Nodup)
    (ih : ∀ item ∈ xs, Determined floatText item.2) : Determined floatText (.dict xs) := by
  intro b r r' heq _ _ htext
  cases b with
  | null | bool | int | float | str | list => cases heq
  | dict ys =>
    rw [eq, Bool.and_eq_true, decide_eq_true_eq] at heq
    have hperm := perm_keys hkeys heq.1 heq.2
    have hkeys' := hperm.nodup_iff.mp hkeys
    rw [dumps, dumps, itemsText, itemsText, sortItems_dumpsItems, sortItems_dumpsItems,
      map_map, map_map, cons_append, cons_append, append_assoc,
      append_assoc, List.cons.injEq] at htext
    -- every member of the first is alike the one under its key
    refine (forall₂_of_intercalate
      (S := fun x y => (∀ w, ys.lookup x.1 = some w → alike x.2 w = true) ∧ x.1 = y.1) rfl
      (forall₂_sortItems hperm) ?_ htext.2).imp_left fun halike => ?_
    · intro x hx y hy r r' hxy hr hr' hmember
      obtain ⟨w, hlookup, hw⟩ := eqItems_iff.mp heq.2 x (mem_sortItems.mp hx)
      rw [value_unique hkeys' (mem_sortItems.mp hy) hxy hlookup] at hw
      simp only [Function.comp_apply, hxy, append_assoc, cons_append,
        append_cancel_left_eq, List.cons.injEq, true_and] at hmember
      obtain ⟨halike, hrest⟩ := ih x (mem_sortItems.mp hx) y.2 r r' hw hr hr' hmember
      refine ⟨⟨fun w' hw' => ?_, hxy⟩, hrest⟩
      rw [value_unique hkeys' (mem_sortItems.mp hy) hxy hw']
      exact halike
    · rw [alike, alikeItems_iff]
      exact fun x hx => ((forall₂_and_left _ _).mp halike).1 x (mem_sortItems.mpr hx)

/-- **Equal values with the same text are alike.** -/
theorem alike_of_dumps_eq (hf : IsRepr floatText) (hunique : Unique a) (heq : eq a b = true)
    (h : dumps floatText a = dumps floatText b) : alike a b = true := by
  suffices hdetermined : Determined floatText a from
    (hdetermined b [','] [','] heq ⟨',', rfl, rfl⟩ ⟨',', rfl, rfl⟩ (by rw [h])).1
  clear heq h
  induction hunique with
  | null | bool | int | float => exact determined_word hf rfl
  | str s =>
    intro b r r' heq _ _ htext
    obtain rfl := str_eq heq
    exact ⟨rfl, append_cancel_left htext⟩
  | list _ ih => exact determined_list ih
  | dict hkeys _ ih => exact determined_dict hkeys ih

end Texts

/-- The digits of a float, which are right for `0.0`. -/
def sampleFloat (x : BitVec 64) : List Char := intText x.toInt ++ ['.', '0']

theorem isRepr_sampleFloat : IsRepr sampleFloat where
  word x c hc := by
    rcases mem_append.mp hc with hint | htail
    · exact (intText_word _ c hint).1
    · simp only [mem_cons, not_mem_nil, or_false] at htail
      rcases htail with rfl | rfl <;> rfl
  ne_int x n h := by
    have hdot : '.' ∈ intText n := by simp [← h, sampleFloat]
    exact absurd (mem_intText hdot) (by decide)
  ne_bool x b h := by
    have hdot : '.' ∈ dumps sampleFloat (.bool b) := by simp [← h, sampleFloat]
    rw [dumps] at hdot
    cases b <;> exact absurd hdot (by decide)
  zero x y _ h := BitVec.eq_of_toInt_eq (intText_injective (append_cancel_right h))

end AgentBridge.Protocols.Value
