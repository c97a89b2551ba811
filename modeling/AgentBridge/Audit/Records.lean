import AgentBridge.Audit.Entry
import AgentBridge.Protocols.Equality

/-!
# Audit records from outside

`verify_chain` is given records that may come from an export: JSON objects in any order, with any
members. It sorts them by their numbers, takes the fields of an entry out of each one, and lets
Python compare what is there; nothing makes a number an integer or a name a string.

The hash of an entry covers its number and the hash before it. So the hash of the last record fixes
the record before it, and with it the whole log, down to the record with the number zero.

* `head_commits_to_log` : **the last hash of an accepted log determines all of it**.
* `verifyRecords_record` : **on the records of entries this is the check of entries**.
-/

namespace AgentBridge.Audit

open Protocols Value JsonText

/-- What hashing a record takes from the language. -/
structure Hashing where
  sha : Sha256
  /-- `json.dumps(value, sort_keys=True)`. -/
  dumps : Value → List Char
  /-- `x + 1`, for a float. -/
  addOne : BitVec 64 → BitVec 64
  /-- Rounding is monotone. -/
  one_le_addOne : ∀ x q, floatValue? x = some q → 0 ≤ q →
    ∃ q', floatValue? (addOne x) = some q' ∧ 1 ≤ q'

/-- The fields of `_payload`. -/
def payloadFields : List String :=
  ["seq", "timestamp", "actor", "action", "source_protocol", "target_protocol", "capability",
    "decision", "reason", "cost", "prev_hash"]

/-- The fields of `AuditEntry`. -/
def entryFields : List String := payloadFields ++ ["entry_hash"]

/-- `AuditEntry(**fields)._payload()`, which raises if a field is missing. Other members are left
out. -/
def payloadOf (rec : Value) : Option Value :=
  if payloadFields.all fun field => (rec.find field).isSome then
    some (.object (payloadFields.map fun field => (field, (rec.find field).getD .null)))
  else none

section Verify

variable (J : Hashing)

/-- `AuditEntry(**fields).compute_hash()`. -/
def hashOf (rec : Value) : Option PyString := (payloadOf rec).map fun p => J.sha.digest (J.dumps p)

/-- `seq + 1`. -/
def addOne : Value → Value
  | .bool b => .int (if b then 2 else 1)
  | .int n => .int (n + 1)
  | .float x => .float (J.addOne x)
  | v => v

/-- The loop of `verify_chain`; `expected` is `prev_seq + 1`. A missing member raises. -/
def walkRecords (expected prevHash : Value) : List Value → Bool
  | [] => true
  | rec :: rest =>
    match rec.find "seq", rec.find "prev_hash", hashOf J rec, rec.find "entry_hash" with
    | some seq, some prev, some digest, some hash =>
      seq.eq expected && prev.eq prevHash && eq (.str digest) hash &&
        walkRecords (addOne J seq) hash rest
    | _, _, _, _ => false

/-- The number of a record. -/
def seqOf (rec : Value) : Option ℚ := (rec.find "seq").bind number?

/-- `sorted(records, key=lambda r: r["seq"])`. -/
def ordered (records : List Value) : List Value :=
  records.insertionSort fun r s => (seqOf r).getD 0 ≤ (seqOf s).getD 0

/-- `verify_chain(records, require_genesis=True)`. A record without a finite number is not accepted:
the comparison raises, or the number is not the one that is expected. -/
def verifyRecords (records : List Value) : Bool :=
  records.all (fun rec => (seqOf rec).isSome) &&
    match ordered records with
    | [] => true
    | first :: rest =>
      -- `(0 - 1) + 1` is zero for every kind of number
      (first.find "seq").any (·.eq (.int 0)) &&
        (first.find "prev_hash").any (·.eq (.str genesis)) &&
        walkRecords J (.int 0) ((first.find "prev_hash").getD .null) (first :: rest)

end Verify

/-! ### Logs, newest record first -/

/-- The record has the hash of its own fields. -/
structure Hashed (J : Hashing) (rec : Value) (hash : PyString) : Prop where
  entryHash : rec.find "entry_hash" = some (.str hash)
  digest : hashOf J rec = some hash

/-- A log, newest record first: each record names the hash of the next one, and only the last one
has the number zero. -/
inductive Descends (J : Hashing) : List Value → Prop
  | first {rec : Value} {hash : PyString} (hhash : Hashed J rec hash) (hseq : seqOf rec = some 0) :
      Descends J [rec]
  | next {rec rec' : Value} {log : List Value} {hash hash' : PyString} {q : ℚ}
      (hhash : Hashed J rec hash) (hseq : seqOf rec = some q) (hq : 1 ≤ q)
      (hhash' : Hashed J rec' hash') (hprev : rec.find "prev_hash" = some (.str hash'))
      (hlog : Descends J (rec' :: log)) : Descends J (rec :: rec' :: log)

section Walk

variable {J : Hashing} {expected prevHash rec : Value} {rest : List Value}

/-- One after a number that is not negative is at least one. -/
theorem number?_addOne {v : Value} {q : ℚ} (h : number? v = some q) (hq : 0 ≤ q) :
    ∃ q', number? (addOne J v) = some q' ∧ 1 ≤ q' := by
  cases v with
  | null | str | list | dict => cases h
  | bool b =>
    refine ⟨_, rfl, ?_⟩
    cases b <;> norm_num
  | int n =>
    refine ⟨_, rfl, ?_⟩
    have hn : (n : ℚ) = q := Option.some.inj h
    rw [← hn, Int.cast_nonneg_iff] at hq
    exact_mod_cast Int.le_add_of_nonneg_left hq
  | float x => exact J.one_le_addOne x q h hq

/-- One round of the loop. -/
theorem walkRecords_cons (h : walkRecords J expected prevHash (rec :: rest) = true) :
    ∃ seq prev hash, rec.find "seq" = some seq ∧ seq.eq expected = true ∧
      rec.find "prev_hash" = some prev ∧ prev.eq prevHash = true ∧ Hashed J rec hash ∧
      walkRecords J (addOne J seq) (.str hash) rest = true := by
  rw [walkRecords] at h
  cases hseq : rec.find "seq" with
  | none => simp [hseq] at h
  | some seq =>
    cases hprev : rec.find "prev_hash" with
    | none => simp [hseq, hprev] at h
    | some prev =>
      cases hdigest : hashOf J rec with
      | none => simp [hseq, hprev, hdigest] at h
      | some digest =>
        cases hhash : rec.find "entry_hash" with
        | none => simp [hseq, hprev, hdigest, hhash] at h
        | some hash =>
          simp only [hseq, hprev, hdigest, hhash, Bool.and_eq_true] at h
          obtain ⟨⟨⟨hseq', hprev'⟩, hhash'⟩, hrest⟩ := h
          obtain rfl := str_eq hhash'
          exact ⟨seq, prev, digest, rfl, hseq', rfl, hprev', ⟨hhash, hdigest⟩, hrest⟩

/-- The loop continues a log. -/
theorem Descends.of_walkRecords {log : List Value} {hash : PyString} {seq : Value} {q : ℚ} :
    ∀ {rec : Value}, Descends J (rec :: log) → Hashed J rec hash → rec.find "seq" = some seq →
      number? seq = some q → 0 ≤ q → walkRecords J (addOne J seq) (.str hash) rest = true →
        Descends J (rest.reverse ++ rec :: log) := by
  induction rest generalizing log hash seq q with
  | nil =>
    intro rec hlog _ _ _ _ _
    exact hlog
  | cons rec' rest ih =>
    intro rec hlog hhash hseq hnumber hq hwalk
    obtain ⟨seq', prev, hash', hseq', heq, hprev, heq', hhash', hrest⟩ := walkRecords_cons hwalk
    obtain ⟨q', hsucc, hq'⟩ := number?_addOne (J := J) hnumber hq
    have hnumber' : number? seq' = some q' := number?_of_eq heq hsucc
    have hseqOf : seqOf rec' = some q' := by rw [seqOf, hseq', Option.bind_some, hnumber']
    rw [eq_str heq'] at hprev
    have hnext : Descends J (rec' :: rec :: log) := .next hhash' hseqOf hq' hhash hprev hlog
    rw [List.reverse_cons, List.append_assoc]
    exact ih hnext hhash' hseq' hnumber' (zero_le_one.trans hq') hrest

theorem Descends.of_verifyRecords {records : List Value} (h : verifyRecords J records = true)
    (hne : records ≠ []) : Descends J (ordered records).reverse := by
  rw [verifyRecords, Bool.and_eq_true] at h
  obtain ⟨-, h⟩ := h
  cases hordered : ordered records with
  | nil =>
    have hperm : (ordered records).Perm records := List.perm_insertionSort _ _
    rw [hordered] at hperm
    exact absurd hperm.nil_eq.symm hne
  | cons first rest =>
    rw [hordered] at h
    simp only [Bool.and_eq_true] at h
    obtain ⟨⟨hzero, hgenesis⟩, hwalk⟩ := h
    obtain ⟨seq, prev, hash, hseq, heq, -, -, hhash, hrest⟩ := walkRecords_cons hwalk
    have hnumber : number? seq = some 0 := by
      have hq : number? (.int 0) = some 0 := by rw [number?, Int.cast_zero]
      exact number?_of_eq heq hq
    have hseqOf : seqOf first = some 0 := by rw [seqOf, hseq, Option.bind_some, hnumber]
    rw [List.reverse_cons]
    exact Descends.of_walkRecords (.first hhash hseqOf) hhash hseq hnumber le_rfl hrest

end Walk

/-! ### What a hash commits to -/

/-- The records have the same fields of an entry. -/
def SameFields (r s : Value) : Prop :=
  ∀ field ∈ entryFields, ∃ v w, r.find field = some v ∧ s.find field = some w ∧ same v w = true

section Commit

variable {J : Hashing} {r s : Value}

variable {field : String} {p : Value}

theorem find_object_map {fields : List String} {f : String → Value} (h : field ∈ fields) :
    (Value.object (fields.map fun key => (key, f key))).find field = some (f field) := by
  induction fields with
  | nil => cases h
  | cons key fields ih =>
    rw [List.map_cons, find_object_cons]
    by_cases hkey : field = key
    · rw [if_pos hkey, hkey]
    · rw [if_neg hkey]
      exact ih ((List.mem_cons.mp h).resolve_left hkey)

theorem find_of_payloadOf (h : payloadOf r = some p) (hfield : field ∈ payloadFields) :
    ∃ v, r.find field = some v ∧ p.find field = some v := by
  rw [payloadOf] at h
  split at h
  case isFalse => cases h
  case isTrue hall =>
    cases h
    obtain ⟨v, hv⟩ := Option.isSome_iff_exists.mp (List.all_eq_true.mp hall field hfield)
    refine ⟨v, hv, ?_⟩
    rw [find_object_map hfield, hv, Option.getD_some]

theorem isDict_of_payloadOf (h : payloadOf r = some p) : ∃ items, p = .dict items := by
  rw [payloadOf] at h
  split at h
  case isFalse => cases h
  case isTrue =>
    cases h
    exact ⟨_, rfl⟩

theorem sameFields_of_same {p' : Value} {hash : PyString} (hr : Hashed J r hash)
    (hs : Hashed J s hash) (hp : payloadOf r = some p) (hp' : payloadOf s = some p')
    (h : same p p' = true) : SameFields r s := by
  intro field hfield
  rcases List.mem_append.mp hfield with hpayload | hentry
  · obtain ⟨v, hv, hpv⟩ := find_of_payloadOf hp hpayload
    obtain ⟨w, hw, hpw⟩ := find_of_payloadOf hp' hpayload
    obtain ⟨items, rfl⟩ := isDict_of_payloadOf hp
    obtain ⟨items', rfl⟩ := isDict_of_payloadOf hp'
    rw [same, Bool.and_eq_true, sameItems_iff] at h
    obtain ⟨w', hw', hsame⟩ := h.2 _ (mem_of_lookup hpv)
    have hww : w' = w := Option.some.inj (hw'.symm.trans hpw)
    exact ⟨v, w, hv, hw, hww ▸ hsame⟩
  · obtain rfl := List.mem_singleton.mp hentry
    exact ⟨_, _, hr.entryHash, hs.entryHash, decide_eq_true rfl⟩

/-- A field of both records. -/
theorem SameFields.find (h : SameFields r s) (hfield : field ∈ entryFields) {v : Value}
    (hv : r.find field = some v) : ∃ w, s.find field = some w ∧ same v w = true := by
  obtain ⟨v', w, hv', hw, hsame⟩ := h field hfield
  obtain rfl : v' = v := Option.some.inj (hv'.symm.trans hv)
  exact ⟨w, hw, hsame⟩

theorem SameFields.seqOf_eq (h : SameFields r s) : seqOf r = seqOf s := by
  obtain ⟨v, w, hv, hw, hsame⟩ := h "seq" (by decide)
  rw [seqOf, seqOf, hv, hw, Option.bind_some, Option.bind_some, number?_of_same hsame]

/-- The newest record has the hash of its fields. -/
theorem Descends.exists_hashed {R : List Value} (h : Descends J R) (hr : R.head? = some r) :
    ∃ hash, Hashed J r hash := by
  cases h with
  | first hhash _ | next hhash _ _ _ _ _ =>
    cases hr
    exact ⟨_, hhash⟩

/-- Logs with the same last hash have the same records. -/
theorem Descends.commits {R S : List Value} (hR : Descends J R) (hS : Descends J S)
    (hsame : ∀ r ∈ R, ∀ s ∈ S, ∀ hash, Hashed J r hash → Hashed J s hash → SameFields r s)
    (hash : PyString) (hr : ∀ r ∈ R.head?, Hashed J r hash)
    (hs : ∀ s ∈ S.head?, Hashed J s hash) : List.Forall₂ SameFields R S := by
  induction hR generalizing S hash with
  | @first r _ hhash hseq =>
    cases hS with
    | @first s _ hhash' hseq' =>
      exact .cons (hsame r (by simp) s (by simp) hash (hr r rfl) (hs s rfl)) .nil
    | @next s s' S' _ _ q hhash' hseq' hq _ _ _ =>
      -- the number zero is that of the first record only
      have hfields := hsame r (by simp) s (by simp) hash (hr r rfl) (hs s rfl)
      rw [hfields.seqOf_eq, hseq'] at hseq
      rw [Option.some.inj hseq] at hq
      exact absurd hq (by norm_num)
  | @next r r' R' _ hash₁ q hhash hseq hq hhash₁ hprev hlog ih =>
    cases hS with
    | @first s _ hhash' hseq' =>
      have hfields := hsame r (by simp) s (by simp) hash (hr r rfl) (hs s rfl)
      rw [← hfields.seqOf_eq, hseq] at hseq'
      rw [Option.some.inj hseq'] at hq
      exact absurd hq (by norm_num)
    | @next s s' S' _ hash₂ q' hhash' hseq' hq' hhash₂ hprev' hlog' =>
      have hfields := hsame r (by simp) s (by simp) hash (hr r rfl) (hs s rfl)
      -- both name the same hash, so the records before them are the same
      obtain ⟨w, hw, hsamePrev⟩ := hfields.find (by decide) hprev
      obtain rfl := same_str hsamePrev
      have hhashes : hash₂ = hash₁ := by
        have hvalue := Option.some.inj (hprev'.symm.trans hw)
        exact Value.str.inj hvalue
      subst hhashes
      have hr' : ∀ a ∈ (r' :: R').head?, Hashed J a hash₂ := by
        rintro _ ⟨⟩
        exact hhash₁
      have hs' : ∀ b ∈ (s' :: S').head?, Hashed J b hash₂ := by
        rintro _ ⟨⟩
        exact hhash₂
      exact .cons hfields (ih hlog' (fun a ha b hb => hsame a (List.mem_cons_of_mem _ ha) b
        (List.mem_cons_of_mem _ hb)) hash₂ hr' hs')

end Commit

/-- **The last hash of an accepted log determines all of it**: if `verify_chain` accepts two lists of
records as complete, and the records with the highest numbers have the same hash, then the lists
have the same length and, sorted, the same fields in every record. The digest has no collision on
their payloads, and `json.dumps` writes different payloads differently. -/
theorem head_commits_to_log (J : Hashing) (R S : List Value)
    (hR : verifyRecords J R = true) (hS : verifyRecords J S = true) (r s : Value)
    (hr : (ordered R).getLast? = some r) (hs : (ordered S).getLast? = some s)
    (hhash : r.find "entry_hash" = s.find "entry_hash")
    (hcollision : ∀ a ∈ R, ∀ b ∈ S, ∀ p p', payloadOf a = some p → payloadOf b = some p' →
      J.sha.digest (J.dumps p) = J.sha.digest (J.dumps p') → J.dumps p = J.dumps p')
    (hinjective : ∀ a ∈ R, ∀ b ∈ S, ∀ p p', payloadOf a = some p → payloadOf b = some p' →
      J.dumps p = J.dumps p' → same p p' = true) :
    R.length = S.length ∧ List.Forall₂ SameFields (ordered R) (ordered S) := by
  have hperm : ∀ l, (ordered l).Perm l := fun l => List.perm_insertionSort _ l
  have hne : ∀ {l : List Value} {a : Value}, (ordered l).getLast? = some a → l ≠ [] := by
    rintro _ a ha rfl
    cases ha
  have hsame : ∀ a ∈ (ordered R).reverse, ∀ b ∈ (ordered S).reverse, ∀ hash,
      Hashed J a hash → Hashed J b hash → SameFields a b := by
    intro a ha b hb hash hhashA hhashB
    have hmemA : a ∈ R := (hperm R).mem_iff.mp (List.mem_reverse.mp ha)
    have hmemB : b ∈ S := (hperm S).mem_iff.mp (List.mem_reverse.mp hb)
    obtain ⟨p, hp, hdigest⟩ := Option.map_eq_some_iff.mp hhashA.digest
    obtain ⟨p', hp', hdigest'⟩ := Option.map_eq_some_iff.mp hhashB.digest
    have htext := hcollision a hmemA b hmemB p p' hp hp' (hdigest.trans hdigest'.symm)
    exact sameFields_of_same hhashA hhashB hp hp' (hinjective a hmemA b hmemB p p' hp hp' htext)
  have hdescR := Descends.of_verifyRecords hR (hne hr)
  have hdescS := Descends.of_verifyRecords hS (hne hs)
  have hheadR : (ordered R).reverse.head? = some r := by rw [List.head?_reverse, hr]
  have hheadS : (ordered S).reverse.head? = some s := by rw [List.head?_reverse, hs]
  obtain ⟨hash, hhashR⟩ := hdescR.exists_hashed hheadR
  obtain ⟨hash', hhashS⟩ := hdescS.exists_hashed hheadS
  obtain rfl : hash = hash' := by
    rw [hhashR.entryHash, hhashS.entryHash] at hhash
    exact Value.str.inj (Option.some.inj hhash)
  have hfields : List.Forall₂ SameFields (ordered R).reverse (ordered S).reverse := by
    refine hdescR.commits hdescS hsame hash ?_ ?_
    · intro a ha
      rw [hheadR] at ha
      cases ha
      exact hhashR
    · intro b hb
      rw [hheadS] at hb
      cases hb
      exact hhashS
  have hordered := List.forall₂_reverse_iff.mp hfields
  refine ⟨?_, hordered⟩
  rw [← (hperm R).length_eq, ← (hperm S).length_eq, hordered.length_eq]

/-! ### The records of entries -/

namespace AuditEntry

variable (cost : Cost → Value)

/-- The fields of the payload, with the number that the text of the cost stands for. -/
def values (e : AuditEntry) : List (String × Value) :=
  [("seq", .int e.seq), ("timestamp", .str e.timestamp), ("actor", .str e.actor),
    ("action", .str e.action), ("source_protocol", .str e.sourceProtocol),
    ("target_protocol", .str e.targetProtocol), ("capability", .str e.capability),
    ("decision", .str e.decision), ("reason", .str e.reason), ("cost", cost e.cost),
    ("prev_hash", .str e.prevHash)]

/-- `asdict(entry)`. -/
def record (e : AuditEntry) : Value :=
  .object (e.values cost ++ [("entry_hash", .str e.entryHash)])

end AuditEntry

section Entries

variable {J : Hashing} {cost : Cost → Value}

/-- `json.dumps` writes the payload of an entry as `AuditEntry.payload` does. -/
def Writes (J : Hashing) (cost : Cost → Value) (e : AuditEntry) : Prop :=
  J.dumps (.object (e.values cost)) = e.payload

theorem payloadOf_record (e : AuditEntry) :
    payloadOf (e.record cost) = some (.object (e.values cost)) := by
  simp [payloadOf, payloadFields, AuditEntry.record, AuditEntry.values, find_object_cons]

theorem find_record (cost : Cost → Value) (e : AuditEntry) :
    (e.record cost).find "seq" = some (.int e.seq) ∧
    (e.record cost).find "prev_hash" = some (.str e.prevHash) ∧
    (e.record cost).find "entry_hash" = some (.str e.entryHash) := by
  simp [AuditEntry.record, AuditEntry.values, find_object_cons]

theorem walkRecords_record {entries : List AuditEntry} (h : ∀ e ∈ entries, Writes J cost e)
    (prevSeq : ℤ) (prevHash : PyString) :
    walkRecords J (.int (prevSeq + 1)) (.str prevHash) (entries.map (·.record cost)) =
      walk J.sha prevSeq prevHash entries := by
  induction entries generalizing prevSeq prevHash with
  | nil => rfl
  | cons e entries ih =>
    obtain ⟨he, hentries⟩ := List.forall_mem_cons.mp h
    obtain ⟨hseq, hprev, hhash⟩ := find_record cost e
    have hdigest : hashOf J (e.record cost) = some (computeHash J.sha e) := by
      rw [hashOf, payloadOf_record, Option.map_some, he, computeHash]
    rw [List.map_cons, walk, ← ih hentries, walkRecords, hseq, hprev, hhash, hdigest]
    by_cases hs : e.seq = prevSeq + 1
    · by_cases hp : e.prevHash = prevHash
      · by_cases hd : computeHash J.sha e = e.entryHash
        · simp [eq, eqLeaf, int?, hs, hp, hd, addOne]
        · simp [eq, eqLeaf, hd]
      · simp [eq, eqLeaf, hp]
    · simp [eq, eqLeaf, int?, hs, Ne.symm hs]

theorem seqOf_record (e : AuditEntry) : seqOf (e.record cost) = some (e.seq : ℚ) := by
  rw [seqOf, (find_record cost e).1, Option.bind_some, number?]

theorem ordered_record (entries : List AuditEntry) :
    ordered (entries.map (·.record cost)) =
      (byNumber entries).map (·.record cost) := by
  refine (List.map_insertionSort _ _ _ entries fun a _ b _ => ?_).symm
  rw [seqOf_record, seqOf_record, Option.getD_some, Option.getD_some, Int.cast_le]

/-- **On the records of entries this is the check of entries.** -/
theorem verifyRecords_record {entries : List AuditEntry} (h : ∀ e ∈ entries, Writes J cost e) :
    verifyRecords J (entries.map (·.record cost)) = verifyChain J.sha entries true := by
  have hall : (entries.map (·.record cost)).all (fun rec => (seqOf rec).isSome) = true := by
    simp [seqOf_record]
  rw [verifyRecords, hall, Bool.true_and, ordered_record, verifyChain]
  cases hsort : byNumber entries with
  | nil => rfl
  | cons first rest =>
    obtain ⟨hseq, hprev, -⟩ := find_record cost first
    have hwrites : ∀ e ∈ first :: rest, Writes J cost e := fun e he =>
      h e ((List.perm_insertionSort _ entries).mem_iff.mp (hsort ▸ he))
    have hwalk := walkRecords_record hwrites (first.seq - 1) first.prevHash
    rw [sub_add_cancel] at hwalk
    rw [List.map_cons] at hwalk ⊢
    simp only [hseq, hprev, Option.any_some, Option.getD_some, ← hwalk]
    by_cases hzero : first.seq = 0
    · by_cases hgenesis : first.prevHash = genesis
      · simp [hzero, hgenesis, eq, eqLeaf, int?]
      · simp [hgenesis, eq, eqLeaf, int?]
    · simp [hzero, Ne.symm hzero, eq, eqLeaf, int?]

end Entries

/-! ### A sample log -/

/-- `json.dumps(value, sort_keys=True)`, of an object without objects or lists. -/
def sampleDumps : Value → List Char
  | .dict items => '\x7b' :: ([',', ' '].intercalate ((sortItems (dumpsItems sampleFloat items)).map
      fun item => quoted item.1 ++ ':' :: ' ' :: item.2) ++ ['\x7d'])
  | v => v.dumps sampleFloat

def sampleHashing : Hashing where
  sha := sampleSha
  dumps := sampleDumps
  addOne _ := 0x3ff0000000000000
  one_le_addOne _ _ _ _ := ⟨1, by decide +kernel, le_rfl⟩

def sampleRecord (e : AuditEntry) : Value := e.record fun _ => .float 0

/-- The second record, with a member more. -/
def notedRecord : Value :=
  .object (("note", .null) :: nextEntry.values (fun _ => .float 0) ++
    [("entry_hash", .str nextEntry.entryHash)])

def sampleLog : List Value := [sampleRecord sampleEntry, sampleRecord nextEntry]

/-- The newest record first. -/
def notedLog : List Value := [notedRecord, sampleRecord sampleEntry]

/-- Neither the order of the records nor a member that is no field of an entry matters. -/
theorem head_commits_to_log_sample :
    verifyRecords sampleHashing sampleLog = true ∧ verifyRecords sampleHashing notedLog = true ∧
    sampleLog.length = notedLog.length ∧
    List.Forall₂ SameFields (ordered sampleLog) (ordered notedLog) := by
  have haccepted : verifyRecords sampleHashing sampleLog = true ∧
      verifyRecords sampleHashing notedLog = true := by decide +kernel
  have hdecided : ∀ a ∈ sampleLog, ∀ b ∈ notedLog, ∀ p ∈ payloadOf a, ∀ p' ∈ payloadOf b,
      sampleSha.digest (sampleDumps p) = sampleSha.digest (sampleDumps p') →
        sampleDumps p = sampleDumps p' := by
    decide +kernel
  have hsame : ∀ a ∈ sampleLog, ∀ b ∈ notedLog, ∀ p ∈ payloadOf a, ∀ p' ∈ payloadOf b,
      sampleDumps p = sampleDumps p' → same p p' = true := by
    decide +kernel
  have hhash : (sampleRecord nextEntry).find "entry_hash" = notedRecord.find "entry_hash" := by
    rw [notedRecord, List.cons_append, find_object_cons, if_neg (by decide)]
    rfl
  exact ⟨haccepted.1, haccepted.2, head_commits_to_log sampleHashing sampleLog notedLog haccepted.1
    haccepted.2 (sampleRecord nextEntry) notedRecord rfl rfl hhash
    (fun a ha b hb p p' hp hp' => hdecided a ha b hb p hp p' hp')
    (fun a ha b hb p p' hp hp' => hsame a ha b hb p hp p' hp')⟩

end AgentBridge.Audit
